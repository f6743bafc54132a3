import Mathlib.Data.List.TakeWhile
import NativeVoice.Lib.StartCode
import NativeVoice.Media.AnnexBScan

/-!
# Keyframes with their parameter sets

Two searches through the NAL units of an H264 or H265 frame decide whether it is a keyframe that
carries its parameter sets: `_is_config_keyframe` of `src/discord/ext/native_voice/client.py`, which
looks at the first 16 NAL units up to the first slice and goes on behind their headers, and the test
of `EncodedVideoSink._should_write_h26x` of `src/discord/ext/native_voice/media.py` over
`_annex_b_nal_types`, which goes on one byte behind each start code.

* `readTypes`: the NAL unit types that a search sees which goes on `r` bytes behind each start code.
  Where a NAL unit is shorter than this, the search may miss the start code behind it.
* `isConfigKeyframe_iff` and `hasConfigKeyframe_iff`: what the two answer, in these terms.
* `isConfigKeyframe_eq_iff`: where they agree, and that they do not where more than 15 other NAL
  units come before the first slice of a keyframe.
-/

namespace NativeVoice.Media

open Lib.StartCode (behind cut)

/-- `_H26X_PARAMETER_SET_TYPES`. -/
def NalCodec.parameterSetTypes : NalCodec → List UInt8
  | h264 => [7, 8]
  | h265 => [32, 33, 34]

/-- `_H26X_KEYFRAME_TYPES`. -/
def NalCodec.keyframeTypes : NalCodec → List UInt8
  | h264 => [5]
  | h265 => [16, 17, 18, 19, 20, 21]

/-- The types at which `_is_config_keyframe` stops: the ones of VCL NAL units. -/
def NalCodec.isVcl : NalCodec → UInt8 → Bool
  | h264, nalType => 1 ≤ nalType && nalType ≤ 5
  | h265, nalType => nalType ≤ 31

/-- Whether all parameter sets and a keyframe are among the types. -/
def NalCodec.complete (codec : NalCodec) (nalTypes : List UInt8) : Bool :=
  codec.parameterSetTypes.all (nalTypes.contains ·) && codec.keyframeTypes.any (nalTypes.contains ·)

/-! ## The search of the client -/

/-- The loop of `_is_config_keyframe`, with the number of NAL units that it may still look at. The
next start code is found as `_find_start_code` finds it. -/
def configTypes (codec : NalCodec) (frame : Bytes) : ℕ → ℕ → List UInt8
  | 0, _ => []
  | count + 1, index =>
    if index + 3 ≤ frame.length then
      match findStartCode frame index with
      | none => []
      | some (start, startCodeLen) =>
        let nalStart := start + startCodeLen
        match nalType codec frame nalStart with
        | none => []
        | some type =>
          type :: if codec.isVcl type then []
            else configTypes codec frame count (nalStart + codec.headerLength)
    else []

/-- `_is_config_keyframe`, for the codecs that have parameter sets. -/
def isConfigKeyframe (codec : NalCodec) (frame : Bytes) : Bool :=
  codec.complete (configTypes codec frame 16 0)

/-! ## The search of the sink -/

/-- `_annex_b_nal_types` from `index` on. -/
def annexBNalTypes (payload : Bytes) (codec : NalCodec) (index : ℕ) : List UInt8 :=
  if index + 3 ≤ payload.length then
    if index + 4 ≤ payload.length ∧ (payload.drop index).take 4 = [0, 0, 0, 1] then
      (nalType codec payload (index + 4)).toList ++ annexBNalTypes payload codec (index + 4 + 1)
    else if (payload.drop index).take 3 = [0, 0, 1] then
      (nalType codec payload (index + 3)).toList ++ annexBNalTypes payload codec (index + 3 + 1)
    else annexBNalTypes payload codec (index + 1)
  else []
termination_by payload.length - index

/-- The test of `_should_write_h26x`. -/
def hasConfigKeyframe (codec : NalCodec) (payload : Bytes) : Bool :=
  codec.complete (annexBNalTypes payload codec 0)

/-- `_should_write_h26x`, with `_h26x_started` before and after it. -/
def shouldWriteH26x (codec : NalCodec) (started : Bool) (payload : Bytes) : Bool × Bool :=
  if started then (true, true)
  else if hasConfigKeyframe codec payload then (true, true)
  else (false, false)

/-! ## What the searches see -/

/-- The NAL unit types that are seen by a search that goes on `r` bytes behind a start code. -/
def readTypes (codec : NalCodec) (r : ℕ) (l : Bytes) : List UInt8 :=
  match _h : behind l with
  | none => []
  | some rest => (nalType codec rest 0).toList ++ readTypes codec r (rest.drop r)
termination_by l.length
decreasing_by
  have := Lib.StartCode.length_behind _h
  rw [List.length_drop]
  omega

section Searches

variable {codec : NalCodec} {r : ℕ} {l rest : Bytes}

theorem readTypes_of_none (h : behind l = none) : readTypes codec r l = [] := by
  rw [readTypes, h]

theorem readTypes_of_some (h : behind l = some rest) :
    readTypes codec r l = (nalType codec rest 0).toList ++ readTypes codec r (rest.drop r) := by
  rw [readTypes, h]

theorem nalType_drop (k offset : ℕ) : nalType codec (l.drop k) offset =
    nalType codec l (k + offset) := by
  unfold nalType
  rw [List.drop_drop]

theorem take_eq_four {i : ℕ} : (l.drop i).take 4 = [0, 0, 0, 1] ↔ FourAt l i := by
  rw [← isPrefixOf_four, List.isPrefixOf_iff_prefix, List.prefix_iff_eq_take, eq_comm]
  rfl

theorem take_eq_three {i : ℕ} : (l.drop i).take 3 = [0, 0, 1] ↔ ThreeAt l i := by
  rw [← isPrefixOf_three, List.isPrefixOf_iff_prefix, List.prefix_iff_eq_take, eq_comm]
  rfl

/-! ### The search of the sink -/

theorem behind_of_short (h : l.length < 3) : behind l = none := by
  match l, h with
  | [], _ => rfl
  | [a], _ => simp [behind, Lib.StartCode.codeLength]
  | [a, b], _ => simp [behind, Lib.StartCode.codeLength]

theorem annexBNalTypes_eq (index : ℕ) :
    annexBNalTypes l codec index = readTypes codec 1 (l.drop index) := by
  induction h : l.length - index using Nat.strongRecOn generalizing index with
  | ind n ih =>
    have hstep (k : ℕ) (hk : index < k) (hend : index < l.length) :
        annexBNalTypes l codec k = readTypes codec 1 (l.drop k) :=
      ih (l.length - k) (by omega) k rfl
    rw [annexBNalTypes]
    split
    case isFalse hend =>
      rw [readTypes_of_none (behind_of_short (by rw [List.length_drop]; omega))]
    case isTrue hend =>
      have hlong (k : ℕ) (hne : Lib.StartCode.codeLength (l.drop index) ≠ 0)
          (hk : Lib.StartCode.codeLength (l.drop index) = k) :
          readTypes codec 1 (l.drop index) =
            (nalType codec l (index + k)).toList ++ readTypes codec 1 (l.drop (index + k + 1)) := by
        rw [readTypes_of_some (Lib.StartCode.behind_of_ne_zero hne), hk, List.drop_drop,
          List.drop_drop, nalType_drop, Nat.add_zero]
      have hle := Lib.StartCode.codeLength_le (l.drop index)
      rw [List.length_drop] at hle
      by_cases h₄ : (l.drop index).take 4 = [0, 0, 0, 1]
      · have hcode : Lib.StartCode.codeLength (l.drop index) = 4 := if_pos h₄
        rw [if_pos ⟨by omega, h₄⟩, hlong 4 (by omega) hcode, hstep _ (by omega) (by omega)]
      · rw [if_neg fun hc => h₄ hc.2]
        by_cases h₃ : (l.drop index).take 3 = [0, 0, 1]
        · have hcode : Lib.StartCode.codeLength (l.drop index) = 3 := by
            rw [Lib.StartCode.codeLength, if_neg h₄, if_pos h₃]
          rw [if_pos h₃, hlong 3 (by omega) hcode, hstep _ (by omega) (by omega)]
        · have hcode := Lib.StartCode.codeLength_eq_zero.2 ⟨h₄, h₃⟩
          have hcons := List.drop_eq_getElem_cons (show index < l.length by omega)
          rw [if_neg h₃, hstep _ (by omega) (by omega)]
          rw [hcons] at hcode ⊢
          have hbehind := Lib.StartCode.behind_of_zero hcode
          cases hrest : behind (l.drop (index + 1)) with
          | none => rw [readTypes_of_none hrest, readTypes_of_none (hbehind.trans hrest)]
          | some rest => rw [readTypes_of_some hrest, readTypes_of_some (hbehind.trans hrest)]

/-! ### The search of the client -/

theorem codeLength_drop_eq_zero {i : ℕ} :
    Lib.StartCode.codeLength (l.drop i) = 0 ↔ ¬ FourAt l i ∧ ¬ ThreeAt l i := by
  rw [Lib.StartCode.codeLength_eq_zero, Ne, Ne, take_eq_four, take_eq_three]

/-- Where no start code begins nothing changes. -/
theorem behind_drop {c i : ℕ} (hci : c ≤ i)
    (h : ∀ j, c ≤ j → j < i → ¬ FourAt l j ∧ ¬ ThreeAt l j) :
    behind (l.drop c) = behind (l.drop i) := by
  induction i, hci using Nat.le_induction with
  | base => rfl
  | succ i hi ih =>
    rw [ih fun j hj hji => h j hj (by omega)]
    by_cases hend : i < l.length
    · have hzero := codeLength_drop_eq_zero.2 (h i hi (by omega))
      rw [List.drop_eq_getElem_cons hend] at hzero ⊢
      exact Lib.StartCode.behind_of_zero hzero
    · rw [List.drop_eq_nil_of_le (by omega), List.drop_eq_nil_of_le (by omega)]

theorem behind_eq_findStartCode (c : ℕ) :
    behind (l.drop c) = (findStartCode l c).map fun code => l.drop (code.1 + code.2) := by
  have hspec := findStartCode_spec (l := l) (c := c)
  -- what the search sees at a place says whether a start code begins there, unless one began before
  have hnone (i : ℕ) (h : ∀ j, j < i → codeLength l c j = none) (j : ℕ) (hj : c ≤ j) (hji : j < i) :
      ¬ FourAt l j ∧ ¬ ThreeAt l j := by
    obtain ⟨h₄, h₃⟩ := codeLength_eq_none.1 (h j hji) hj
    refine ⟨h₄, fun hthree => ?_⟩
    obtain ⟨hlt, hfour⟩ := h₃ hthree
    exact (codeLength_eq_none.1 (h (j - 1) (by omega)) (by omega)).1 hfour
  cases hfind : findStartCode l c with
  | none =>
    rw [hfind] at hspec
    by_cases hend : c ≤ l.length
    · rw [behind_drop hend (hnone _ fun j _ => hspec j), List.drop_length]
      rfl
    · rw [List.drop_eq_nil_of_le (by omega)]
      rfl
  | some code =>
    obtain ⟨i, length⟩ := code
    rw [hfind] at hspec
    obtain ⟨hcode, hbefore⟩ := hspec
    obtain ⟨hci, hkind⟩ := codeLength_eq_some.1 hcode
    rw [behind_drop hci (hnone i hbefore)]
    have hlength : Lib.StartCode.codeLength (l.drop i) = length := by
      rcases hkind with ⟨hfour, rfl⟩ | ⟨hthree, -, rfl⟩
      · exact if_pos (take_eq_four.2 hfour)
      · rw [Lib.StartCode.codeLength, if_neg fun h => (take_eq_four.1 h).not_three hthree,
          if_pos (take_eq_three.2 hthree)]
    have hpos : length ≠ 0 := by omega
    rw [Lib.StartCode.behind_of_ne_zero (hlength ▸ hpos), hlength, List.drop_drop]
    rfl

theorem nalType_eq_none {i : ℕ} :
    nalType codec l i = none ↔ (l.drop i).length < codec.headerLength := by
  unfold nalType
  cases codec with
  | h264 =>
    cases l.drop i with
    | nil => exact iff_of_true rfl (by simp [NalCodec.headerLength])
    | cons header tail => exact iff_of_false (by simp) (by simp [NalCodec.headerLength])
  | h265 =>
    cases l.drop i with
    | nil => exact iff_of_true rfl (by simp [NalCodec.headerLength])
    | cons header tail =>
      cases tail with
      | nil => exact iff_of_true rfl (by simp [NalCodec.headerLength])
      | cons next tail => exact iff_of_false (by simp) (by simp [NalCodec.headerLength])

/-- The types up to the first one of a VCL NAL unit. -/
def stopAtVcl (codec : NalCodec) (types : List UInt8) : List UInt8 :=
  types.takeWhile (!codec.isVcl ·) ++ (types.find? codec.isVcl).toList

theorem configTypes_eq (count index : ℕ) : configTypes codec l count index =
    stopAtVcl codec ((readTypes codec codec.headerLength (l.drop index)).take count) := by
  induction count generalizing index with
  | zero => rfl
  | succ count ih =>
    rw [configTypes]
    split
    case isFalse hend =>
      rw [readTypes_of_none (behind_of_short (by rw [List.length_drop]; omega))]
      rfl
    case isTrue =>
      have hbehind := behind_eq_findStartCode (l := l) index
      cases hfind : findStartCode l index with
      | none =>
        rw [hfind] at hbehind
        rw [readTypes_of_none hbehind]
        rfl
      | some code =>
        obtain ⟨start, startCodeLen⟩ := code
        rw [hfind, Option.map_some] at hbehind
        rw [readTypes_of_some hbehind, nalType_drop, Nat.add_zero, List.drop_drop]
        dsimp only
        cases htype : nalType codec l (start + startCodeLen) with
        | none =>
          -- the frame ends before the header does
          have hend := nalType_eq_none.1 htype
          rw [List.length_drop] at hend
          rw [List.drop_eq_nil_of_le (by omega), readTypes_of_none rfl]
          rfl
        | some type =>
          dsimp only
          rw [Option.toList_some, List.singleton_append, List.take_succ_cons, ih]
          unfold stopAtVcl
          by_cases hvcl : codec.isVcl type = true <;> simp [hvcl]

end Searches

/-! ## The NAL units -/

/-- The type of a NAL unit, in the first byte of its header. -/
def NalCodec.unitType : NalCodec → Bytes → Option UInt8
  | _, [] => none
  | h264, header :: _ => some (header &&& 0x1F)
  | h265, header :: _ => some (header >>> 1 &&& 0x3F)

/-- The types of the NAL units of a frame. -/
def unitTypes (codec : NalCodec) (frame : Bytes) : List UInt8 :=
  (cut frame).2.filterMap codec.unitType

/-- All NAL units of the frame have their headers. -/
def Headed (codec : NalCodec) (frame : Bytes) : Prop :=
  ∀ unit ∈ (cut frame).2, codec.headerLength ≤ unit.length

/-- The frames of the two questions: parameter sets come before VCL NAL units, and these are all or
none of them of a keyframe. -/
structure Regular (codec : NalCodec) (frame : Bytes) : Prop where
  parameterSetsFirst : (unitTypes codec frame).Pairwise fun first later =>
    codec.isVcl first = true → later ∉ codec.parameterSetTypes
  keyframeOrNot : (∀ type ∈ unitTypes codec frame, codec.isVcl type = true →
      type ∈ codec.keyframeTypes) ∨
    ∀ type ∈ unitTypes codec frame, codec.isVcl type = true → type ∉ codec.keyframeTypes

section Units

variable {codec : NalCodec} {r : ℕ} {l rest : Bytes}

theorem unitTypes_of_behind (h : behind l = some rest) :
    unitTypes codec l = (codec.unitType (cut rest).1).toList ++ unitTypes codec rest := by
  rw [unitTypes, Lib.StartCode.cut_snd_eq, h, unitTypes]
  cases hunit : codec.unitType (cut rest).1 with
  | none => simp [hunit]
  | some type => simp [hunit]

theorem unitTypes_drop_sublist (k : ℕ) : (unitTypes codec (l.drop k)).Sublist (unitTypes codec l) :=
  (Lib.StartCode.cut_snd_drop_suffix l k).sublist.filterMap _

theorem nalType_eq_unitType (hlen : codec.headerLength ≤ rest.length) (hunit : (cut rest).1 ≠ []) :
    nalType codec rest 0 = codec.unitType (cut rest).1 := by
  cases rest with
  | nil => simp at hunit
  | cons header tail =>
    by_cases hcode : Lib.StartCode.codeLength (header :: tail) = 0
    · rw [Lib.StartCode.cut_cons_of_zero hcode]
      cases codec with
      | h264 => rfl
      | h265 =>
        obtain ⟨second, tail, rfl⟩ : ∃ second tail', tail = second :: tail' :=
          List.exists_cons_of_ne_nil fun hnil => by simp [hnil, NalCodec.headerLength] at hlen
        rfl
    · rw [Lib.StartCode.cut_of_ne_zero hcode] at hunit
      exact absurd rfl hunit

/-- A search takes the first byte behind a start code for a header, also where it belongs to the
next start code. -/
theorem nalType_of_no_unit {type : UInt8} (hunit : (cut rest).1 = [])
    (h : nalType codec rest 0 = some type) : type = 0 := by
  cases rest with
  | nil => cases codec <;> cases h
  | cons header tail =>
    obtain rfl : header = 0 := by
      by_contra hne
      have hcode : Lib.StartCode.codeLength (header :: tail) = 0 :=
        Lib.StartCode.codeLength_eq_zero.2 (by simp [hne])
      rw [Lib.StartCode.cut_cons_of_zero hcode] at hunit
      cases hunit
    cases codec with
    | h264 => exact (Option.some.inj h).symm
    | h265 =>
      cases tail with
      | nil => cases h
      | cons second tail => exact (Option.some.inj h).symm

theorem unitType_of_nalType {type : UInt8} (h : nalType codec rest 0 = some type)
    (hne : type ≠ 0) : codec.unitType (cut rest).1 = some type := by
  have hunit : (cut rest).1 ≠ [] := fun hnil => hne (nalType_of_no_unit hnil h)
  have hlen : codec.headerLength ≤ rest.length := by
    by_contra hshort
    rw [nalType_eq_none.2 (by rw [List.drop_zero]; omega)] at h
    cases h
  rw [← nalType_eq_unitType hlen hunit, h]

theorem filter_readTypes_sublist :
    ((readTypes codec r l).filter (· ≠ 0)).Sublist (unitTypes codec l) := by
  induction h : l.length using Nat.strongRecOn generalizing l with
  | ind n ih =>
    cases hbehind : behind l with
    | none =>
      rw [readTypes_of_none hbehind]
      exact List.nil_sublist _
    | some rest =>
      have hlt := Lib.StartCode.length_behind hbehind
      rw [readTypes_of_some hbehind, unitTypes_of_behind hbehind, List.filter_append]
      refine List.Sublist.append ?_ ((ih _ (by rw [List.length_drop]; omega) rfl).trans
        (unitTypes_drop_sublist r))
      cases htype : nalType codec rest 0 with
      | none => exact List.nil_sublist _
      | some type =>
        by_cases hne : type = 0
        · simp [hne]
        · rw [unitType_of_nalType htype hne]
          exact List.filter_sublist

/-- Where all NAL units have their headers, a search that goes on in them sees them all. -/
theorem readTypes_eq_unitTypes (hr : r ≤ codec.headerLength) (h : Headed codec l) :
    readTypes codec r l = unitTypes codec l := by
  induction hlen : l.length using Nat.strongRecOn generalizing l with
  | ind n ih =>
    cases hbehind : behind l with
    | none =>
      rw [readTypes_of_none hbehind, unitTypes, Lib.StartCode.cut_snd_eq, hbehind]
      rfl
    | some rest =>
      have hlt := Lib.StartCode.length_behind hbehind
      have hcut := Lib.StartCode.cut_snd_eq l
      rw [hbehind] at hcut
      have hunit : codec.headerLength ≤ (cut rest).1.length := h _ (by simp [hcut])
      have hdrop := Lib.StartCode.cut_snd_drop (hr.trans hunit)
      have htail : unitTypes codec (rest.drop r) = unitTypes codec rest :=
        congrArg (List.filterMap codec.unitType) hdrop
      have hheaded : Headed codec (rest.drop r) := by
        intro unit hmem
        rw [hdrop] at hmem
        exact h unit (by simp [hcut, hmem])
      rw [readTypes_of_some hbehind, unitTypes_of_behind hbehind,
        ih _ (by rw [List.length_drop]; omega) hheaded rfl, htail]
      have hne : (cut rest).1 ≠ [] := by
        intro hnil
        have := codec.one_le_headerLength
        rw [hnil, List.length_nil] at hunit
        omega
      rw [nalType_eq_unitType (hunit.trans (Lib.StartCode.cut_fst_prefix rest).length_le) hne]

end Units

/-! ## The two answers -/

section Answers

variable {codec : NalCodec} {frame : Bytes}

theorem NalCodec.complete_iff {types : List UInt8} : codec.complete types = true ↔
    (∀ type ∈ codec.parameterSetTypes, type ∈ types) ∧
      ∃ type ∈ codec.keyframeTypes, type ∈ types := by
  simp [NalCodec.complete]

theorem NalCodec.keyframe_types : ∀ codec : NalCodec, ∀ type ∈ codec.keyframeTypes,
    codec.isVcl type = true ∧ type ≠ 0 := by
  intro codec
  have hall : codec.keyframeTypes.all (fun type => codec.isVcl type && type != 0) = true := by
    cases codec <;> rfl
  intro type htype
  simpa using List.all_eq_true.1 hall type htype

theorem NalCodec.parameterSet_types : ∀ codec : NalCodec, ∀ type ∈ codec.parameterSetTypes,
    type ≠ 0 := by
  intro codec
  have hall : codec.parameterSetTypes.all (· != 0) = true := by
    cases codec <;> rfl
  intro type htype
  simpa using List.all_eq_true.1 hall type htype

/-- Whatever a search sees, no parameter set comes behind a keyframe. -/
theorem pairwise_readTypes (h : Regular codec frame) (r : ℕ) :
    (readTypes codec r frame).Pairwise fun first later =>
      first ∈ codec.keyframeTypes → later ∉ codec.parameterSetTypes := by
  rw [List.pairwise_iff_forall_sublist]
  intro first later hsub hkey hset
  have hfilter : [first, later].filter (· ≠ 0) = [first, later] := by
    simp [(codec.keyframe_types first hkey).2, codec.parameterSet_types later hset]
  have hunits : [first, later].Sublist (unitTypes codec frame) := by
    rw [← hfilter]
    exact (hsub.filter _).trans filter_readTypes_sublist
  exact List.pairwise_iff_forall_sublist.1 h.parameterSetsFirst hunits
    (codec.keyframe_types first hkey).1 hset

theorem stopAtVcl_of_find {types before behind : List UInt8} {type : UInt8}
    (htypes : types = before ++ type :: behind) (hvcl : codec.isVcl type = true)
    (hbefore : ∀ t ∈ before, codec.isVcl t = false) :
    stopAtVcl codec types = before ++ [type] := by
  have hfind : before.find? codec.isVcl = none := by simpa using hbefore
  have hwhile : before.takeWhile (!codec.isVcl ·) = before :=
    List.takeWhile_eq_self_iff.2 fun t ht => by simp [hbefore t ht]
  rw [stopAtVcl, htypes, List.find?_append, hfind, List.takeWhile_append, hwhile, if_pos rfl]
  simp [hvcl]

theorem mem_of_mem_stopAtVcl {types : List UInt8} {type : UInt8}
    (h : type ∈ stopAtVcl codec types) : type ∈ types := by
  rcases List.mem_append.1 h with h | h
  · exact List.takeWhile_sublist _ |>.subset h
  · exact List.mem_of_find?_eq_some (Option.mem_toList.1 h)

/-- The types before a keyframe that is the first VCL NAL unit hold all parameter sets. -/
theorem complete_stopAtVcl_iff {types : List UInt8} (count : ℕ)
    (h : types.Pairwise fun first later =>
      first ∈ codec.keyframeTypes → later ∉ codec.parameterSetTypes) :
    codec.complete (stopAtVcl codec (types.take count)) = true ↔
      (∀ type ∈ codec.parameterSetTypes, type ∈ types) ∧
        ∃ type ∈ (types.take count).find? codec.isVcl, type ∈ codec.keyframeTypes := by
  rw [NalCodec.complete_iff]
  constructor
  · rintro ⟨hsets, type, hkey, hmem⟩
    refine ⟨fun set hset => List.mem_of_mem_take (mem_of_mem_stopAtVcl (hsets set hset)), type, ?_,
      hkey⟩
    rcases List.mem_append.1 hmem with hmem | hmem
    · have hvcl := List.mem_takeWhile_imp hmem
      rw [(codec.keyframe_types type hkey).1] at hvcl
      cases hvcl
    · exact Option.mem_toList.1 hmem
  · rintro ⟨hsets, type, hfind, hkey⟩
    obtain ⟨hvcl, before, behind, htake, hbefore⟩ := List.find?_eq_some_iff_append.1 hfind
    have hstop : stopAtVcl codec (types.take count) = before ++ [type] :=
      stopAtVcl_of_find htake hvcl fun t ht => by simpa using hbefore t ht
    rw [hstop]
    refine ⟨fun set hset => ?_, type, hkey, by simp⟩
    have hsplit : types = before ++ type :: (behind ++ types.drop count) := by
      rw [← List.cons_append, ← List.append_assoc, ← htake, List.take_append_drop]
    have hmem := hsets set hset
    rw [hsplit] at hmem h
    rcases List.mem_append.1 hmem with hmem | hmem
    · simp [hmem]
    · rcases List.mem_cons.1 hmem with rfl | hmem
      · simp
      · -- behind the keyframe there is no parameter set
        exact absurd hset ((List.pairwise_cons.1 (List.pairwise_append.1 h).2.1).1 set hmem hkey)

theorem isConfigKeyframe_iff (h : Regular codec frame) : isConfigKeyframe codec frame = true ↔
    (∀ type ∈ codec.parameterSetTypes, type ∈ readTypes codec codec.headerLength frame) ∧
      ∃ type ∈ ((readTypes codec codec.headerLength frame).take 16).find? codec.isVcl,
        type ∈ codec.keyframeTypes := by
  rw [isConfigKeyframe, configTypes_eq, List.drop_zero]
  exact complete_stopAtVcl_iff 16 (pairwise_readTypes h _)

theorem hasConfigKeyframe_iff : hasConfigKeyframe codec frame = true ↔
    codec.complete (readTypes codec 1 frame) = true := by
  rw [hasConfigKeyframe, annexBNalTypes_eq, List.drop_zero]

/-- **The searches agree** on whether a frame is a keyframe with its parameter sets just where the
sink sees all of them and a keyframe, and the client sees all of them and a keyframe as the first
VCL NAL unit within 16. If all NAL units have their headers, this says that a keyframe with its
parameter sets has a VCL NAL unit among its first 16. -/
theorem isConfigKeyframe_eq_iff (h : Regular codec frame) :
    (isConfigKeyframe codec frame = hasConfigKeyframe codec frame ↔
      (codec.complete (readTypes codec 1 frame) = true ↔
        (∀ type ∈ codec.parameterSetTypes, type ∈ readTypes codec codec.headerLength frame) ∧
          ∃ type ∈ ((readTypes codec codec.headerLength frame).take 16).find? codec.isVcl,
            type ∈ codec.keyframeTypes)) ∧
    (Headed codec frame →
      (isConfigKeyframe codec frame = hasConfigKeyframe codec frame ↔
        (codec.complete (unitTypes codec frame) = true →
          ∃ type ∈ (unitTypes codec frame).take 16, codec.isVcl type = true))) := by
  have hgeneral : isConfigKeyframe codec frame = hasConfigKeyframe codec frame ↔
      (codec.complete (readTypes codec 1 frame) = true ↔
        (∀ type ∈ codec.parameterSetTypes, type ∈ readTypes codec codec.headerLength frame) ∧
          ∃ type ∈ ((readTypes codec codec.headerLength frame).take 16).find? codec.isVcl,
            type ∈ codec.keyframeTypes) := by
    rw [Bool.eq_iff_iff, isConfigKeyframe_iff h, hasConfigKeyframe_iff]
    exact Iff.comm
  refine ⟨hgeneral, fun hheaded => ?_⟩
  rw [hgeneral, readTypes_eq_unitTypes codec.one_le_headerLength hheaded,
    readTypes_eq_unitTypes (Nat.le_refl _) hheaded]
  constructor
  · intro hiff hcomplete
    obtain ⟨-, type, hfind, -⟩ := hiff.1 hcomplete
    exact ⟨type, List.mem_of_find?_eq_some hfind, List.find?_some hfind⟩
  · intro hearly
    constructor
    · intro hcomplete
      obtain ⟨hsets, key, hkey, hmem⟩ := NalCodec.complete_iff.1 hcomplete
      obtain ⟨vcl, hvcl, hisVcl⟩ := hearly hcomplete
      obtain ⟨type, hfind⟩ := Option.isSome_iff_exists.1
        (List.find?_isSome.2 ⟨vcl, hvcl, hisVcl⟩)
      refine ⟨hsets, type, hfind, ?_⟩
      rcases h.keyframeOrNot with hall | hnone
      · exact hall type (List.mem_of_mem_take (List.mem_of_find?_eq_some hfind))
          (List.find?_some hfind)
      · exact absurd hkey (hnone key hmem (codec.keyframe_types key hkey).1)
    · rintro ⟨hsets, type, hfind, hkey⟩
      exact NalCodec.complete_iff.2 ⟨hsets, type, hkey,
        List.mem_of_mem_take (List.mem_of_find?_eq_some hfind)⟩

end Answers

/-- Two parameter sets, some supplemental enhancement information and a slice of an IDR picture. -/
def seiFrame (count : ℕ) : Bytes :=
  [0, 0, 1, 0x67] ++ [0, 0, 1, 0x68] ++ (List.replicate count [0, 0, 1, 6]).flatten ++
    [0, 0, 1, 0x65]

theorem isConfigKeyframe_eq_iff_sei :
    isConfigKeyframe .h264 (seiFrame 13) = hasConfigKeyframe .h264 (seiFrame 13) := by
  have hregular : Regular .h264 (seiFrame 13) := ⟨by decide +kernel, .inl (by decide +kernel)⟩
  have hheaded : Headed .h264 (seiFrame 13) := by unfold Headed; decide +kernel
  exact ((isConfigKeyframe_eq_iff hregular).2 hheaded).2 fun _ => ⟨5, by decide +kernel, rfl⟩

/-- Five NAL units of H265, of which the first one is cut short. -/
def cutShortFrame : Bytes :=
  [0, 0, 1, 0x46] ++ [0, 0, 1, 0x40, 1] ++ [0, 0, 1, 0x42, 1] ++ [0, 0, 1, 0x44, 1] ++
    [0, 0, 1, 0x26, 1]

/-- Sixteen NAL units before the picture are too many for the client, and in H265 a NAL unit of one
byte hides the one behind it, here the video parameter set. -/
theorem isConfigKeyframe_ne :
    (Regular .h264 (seiFrame 14) ∧ isConfigKeyframe .h264 (seiFrame 14) = false ∧
      hasConfigKeyframe .h264 (seiFrame 14) = true) ∧
    (Regular .h265 cutShortFrame ∧ isConfigKeyframe .h265 cutShortFrame = false ∧
      hasConfigKeyframe .h265 cutShortFrame = true) :=
  ⟨⟨⟨by decide +kernel, .inl (by decide +kernel)⟩, by decide, by decide +kernel⟩,
    ⟨⟨by decide +kernel, .inl (by decide +kernel)⟩, by decide, by decide +kernel⟩⟩

end NativeVoice.Media
