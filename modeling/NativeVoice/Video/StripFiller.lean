import Mathlib.Data.List.DropRight
import Mathlib.Data.List.Forall2
import Mathlib.Data.List.GetD
import NativeVoice.Video.AnnexB

/-!
# Stripping filler data

`strip_h264_filler_nalus` of `src/src/python/video.rs`, which scans for start codes as
`split_annex_b` does and copies all units but the filler data, each with the start code before it.

What was apart may be put together by this: where a unit ends in zero bytes and the next start code
that is left is a short one, a scan takes one of these zero bytes for the beginning of a long start
code. `stripH264FillerNalus_spec` is therefore about units up to the zero bytes at their ends.
-/

namespace NativeVoice.Video

open Lib.StartCode

/-- The loop over the positions of the start codes, with `output` and `removed`. -/
def stripLoop (frame output : Bytes) (removed : Bool) : List (ℕ × ℕ) → Bytes × Bool
  | [] => (output, removed)
  | (start, prefixLen) :: starts =>
    let payloadStart := start + prefixLen
    let payloadEnd := match starts.head? with
      | some (next, _) => next
      | none => frame.length
    if payloadStart ≥ payloadEnd then stripLoop frame output removed starts
    else if frame.getD payloadStart 0 &&& 0x1F = 12 then stripLoop frame output true starts
    else stripLoop frame (output ++ (frame.drop start).take (payloadEnd - start)) removed starts

/-- The scan for start codes is the one of `split_annex_b`. -/
def stripH264FillerNalus (frame : Bytes) : Bytes :=
  let starts := findStarts frame 0
  if starts.isEmpty then frame
  else
    let (output, removed) := stripLoop frame [] false starts
    if !removed || output.isEmpty then frame else output

/-! ## Units with their start codes -/

/-- Filler data, a unit of type 12. -/
def isFiller : Bytes → Bool
  | [] => false
  | header :: _ => header &&& 0x1F = 12

/-- The segments behind the start codes, each with its start code. -/
def pieces (frame : Bytes) : List (ℕ × ℕ) → List (Bytes × Bytes)
  | [] => []
  | (start, prefixLen) :: starts =>
    ((frame.drop start).take prefixLen,
      (frame.drop (start + prefixLen)).take (firstStart frame starts - (start + prefixLen))) ::
      pieces frame starts

/-- The pieces that are copied. -/
def kept (ps : List (Bytes × Bytes)) : List (Bytes × Bytes) :=
  ps.filter fun p => !p.2.isEmpty && !isFiller p.2

theorem map_snd_pieces (frame : Bytes) (starts : List (ℕ × ℕ)) :
    (pieces frame starts).map Prod.snd = segments frame starts := by
  induction starts with
  | nil => rfl
  | cons x starts ih =>
    obtain ⟨start, prefixLen⟩ := x
    rw [pieces, List.map_cons, ih, segments_cons]

theorem fst_of_mem_pieces {frame : Bytes} {starts : List (ℕ × ℕ)} {p : Bytes × Bytes}
    (h : p ∈ pieces frame starts) : ∃ x ∈ starts, p.1 = (frame.drop x.1).take x.2 := by
  induction starts with
  | nil => cases h
  | cons x starts ih =>
    rcases List.mem_cons.mp h with rfl | h
    · exact ⟨x, by simp, rfl⟩
    · obtain ⟨y, hy, hp⟩ := ih h
      exact ⟨y, List.mem_cons_of_mem _ hy, hp⟩

/-- Start codes end before the next ones begin. -/
def Ordered (frame : Bytes) : List (ℕ × ℕ) → Prop
  | [] => True
  | (start, prefixLen) :: starts =>
    start + prefixLen ≤ firstStart frame starts ∧ firstStart frame starts ≤ frame.length ∧
      Ordered frame starts

theorem findStarts_spec (frame : Bytes) (i : ℕ) (hi : i ≤ frame.length) :
    Ordered frame (findStarts frame i) ∧ firstStart frame (findStarts frame i) ≤ frame.length ∧
      ∀ x ∈ findStarts frame i, IsCode ((frame.drop x.1).take x.2) := by
  induction h : frame.length - i using Nat.strongRecOn generalizing i with
  | ind n ih =>
    by_cases hz : codeLength (frame.drop i) = 0
    · rw [findStarts_of_zero hz]
      split
      · exact ih (frame.length - (i + 1)) (by omega) (i + 1) (by omega) rfl
      · exact ⟨trivial, le_refl _, by simp⟩
    · have hle := codeLength_le (frame.drop i)
      rw [List.length_drop] at hle
      obtain ⟨hordered, hfirst, hcodes⟩ := ih (frame.length - (i + codeLength (frame.drop i)))
        (by omega) (i + codeLength (frame.drop i)) (by omega) rfl
      have hnext := (cut_drop frame (i + codeLength (frame.drop i)) (by omega)).2
      rw [findStarts_of_ne_zero hz]
      refine ⟨⟨hnext, hfirst, hordered⟩, hi, fun x hx => ?_⟩
      rcases List.mem_cons.mp hx with rfl | hx
      · exact isCode_take_codeLength hz
      · exact hcodes x hx

/-- Every piece of a frame is a start code and a clean segment. -/
theorem pieces_findStarts {frame : Bytes} {p : Bytes × Bytes}
    (h : p ∈ pieces frame (findStarts frame 0)) : IsCode p.1 ∧ Clean p.2 := by
  constructor
  · obtain ⟨x, hx, hp⟩ := fst_of_mem_pieces h
    rw [hp]
    exact (findStarts_spec frame 0 (Nat.zero_le _)).2.2 x hx
  · have hcut := (cut_drop frame 0 (Nat.zero_le _)).1
    rw [List.drop_zero] at hcut
    have hmem : p.2 ∈ segments frame (findStarts frame 0) := by
      rw [← map_snd_pieces]
      exact List.mem_map_of_mem h
    have hclean := (clean_cut frame).2
    rw [hcut] at hclean
    exact hclean _ hmem

theorem stripLoop_eq {frame : Bytes} {starts : List (ℕ × ℕ)} (h : Ordered frame starts)
    (output : Bytes) (removed : Bool) :
    stripLoop frame output removed starts =
      (output ++ (kept (pieces frame starts)).flatMap fun p => p.1 ++ p.2,
        removed || (pieces frame starts).any fun p => isFiller p.2) := by
  induction starts generalizing output removed with
  | nil => simp [stripLoop, pieces, kept]
  | cons x starts ih =>
    obtain ⟨start, prefixLen⟩ := x
    obtain ⟨hle, hend, hrest⟩ := h
    change (if start + prefixLen ≥ firstStart frame starts then _ else if _ then _ else
      stripLoop frame (output ++ (frame.drop start).take (firstStart frame starts - start)) removed
        starts) = _
    by_cases hempty : start + prefixLen ≥ firstStart frame starts
    · rw [if_pos hempty, ih hrest]
      have hseg : (frame.drop (start + prefixLen)).take
          (firstStart frame starts - (start + prefixLen)) = [] := by
        rw [Nat.sub_eq_zero_of_le hempty, List.take_zero]
      simp [pieces, kept, hseg, isFiller]
    · rw [if_neg hempty]
      obtain ⟨k, hk⟩ : ∃ k, firstStart frame starts - (start + prefixLen) = k + 1 :=
        ⟨_, (Nat.succ_pred_eq_of_pos (by omega)).symm⟩
      have hlt : start + prefixLen < frame.length := by omega
      have hseg : (frame.drop (start + prefixLen)).take
          (firstStart frame starts - (start + prefixLen)) =
            frame[start + prefixLen] :: (frame.drop (start + prefixLen + 1)).take k := by
        rw [hk, List.drop_eq_getElem_cons hlt, List.take_succ_cons]
      have hpiece : (frame.drop start).take (firstStart frame starts - start) =
          (frame.drop start).take prefixLen ++ (frame.drop (start + prefixLen)).take
            (firstStart frame starts - (start + prefixLen)) := by
        rw [← List.drop_drop, ← List.take_add]
        congr 1
        omega
      have hget : frame.getD (start + prefixLen) 0 = frame[start + prefixLen] :=
        List.getD_eq_getElem frame 0 hlt
      rw [hget]
      by_cases hfiller : frame[start + prefixLen] &&& 0x1F = 12
      · rw [if_pos hfiller, ih hrest]
        simp [pieces, kept, hseg, isFiller, hfiller]
      · rw [if_neg hfiller, ih hrest, hpiece]
        simp [pieces, kept, hseg, isFiller, hfiller]

/-- What the function returns: the kept pieces, unless no piece is filler or no piece is kept. -/
theorem stripH264FillerNalus_eq (frame : Bytes) :
    stripH264FillerNalus frame =
      let ps := pieces frame (findStarts frame 0)
      if (ps.any fun p => isFiller p.2) = false ∨ kept ps = [] then frame
      else (kept ps).flatMap fun p => p.1 ++ p.2 := by
  unfold stripH264FillerNalus
  dsimp only
  by_cases hnone : findStarts frame 0 = []
  · simp [hnone, pieces]
  · have hempty : ((kept (pieces frame (findStarts frame 0))).flatMap fun p => p.1 ++ p.2) = [] ↔
        kept (pieces frame (findStarts frame 0)) = [] := by
      constructor
      · intro h
        refine List.eq_nil_iff_forall_not_mem.2 fun p hp => ?_
        have hnil := List.flatMap_eq_nil_iff.1 h p hp
        have hkept := (List.mem_filter.1 hp).2
        simp [(List.append_eq_nil_iff.1 hnil).2] at hkept
      · intro h
        rw [h, List.flatMap_nil]
    rw [if_neg (by simpa using hnone), stripLoop_eq (findStarts_spec frame 0 (Nat.zero_le _)).1,
      List.nil_append, Bool.false_or]
    simp only [Bool.or_eq_true, Bool.not_eq_true', List.isEmpty_iff, hempty]

/-! ## Zero bytes at the ends of units -/

def trim (nalu : Bytes) : Bytes := nalu.rdropWhile (· = 0)

/-- Units without the zero bytes at their ends, and without those that become empty. -/
def trimmed (nalus : List Bytes) : List Bytes := (nalus.map trim).filter fun nalu => !nalu.isEmpty

theorem trim_upToZero {s' s : Bytes} (h : UpToZero s' s) : trim s' = trim s := by
  rcases h with rfl | rfl
  · rfl
  · simp [trim]

/-- The type of a unit is in its first byte. -/
theorem isFiller_upToZero {s' s : Bytes} (h : UpToZero s' s) (hs : isFiller s = false) :
    isFiller s' = false := by
  rcases h with rfl | rfl
  · exact hs
  · cases s' with
    | nil => rfl
    | cons header s' => exact hs

theorem trimmed_forall₂ {ss' ss : List Bytes} (h : List.Forall₂ UpToZero ss' ss) :
    trimmed ss' = trimmed ss := by
  have hmap : ss'.map trim = ss.map trim := by
    induction h with
    | nil => rfl
    | cons hs _ ih => rw [List.map_cons, List.map_cons, trim_upToZero hs, ih]
  rw [trimmed, trimmed, hmap]

theorem trimmed_filter_nonempty (nalus : List Bytes) :
    trimmed (nalus.filter fun nalu => !nalu.isEmpty) = trimmed nalus := by
  induction nalus with
  | nil => rfl
  | cons n nalus ih =>
    cases n with
    | nil => simpa [trimmed, trim] using ih
    | cons b n =>
      simp only [trimmed, List.isEmpty_cons, Bool.not_false, List.filter_cons_of_pos,
        List.map_cons, List.filter_cons] at ih ⊢
      rw [ih]

/-! ## The units that are left -/

/-- The kept pieces are read again, up to zero bytes, and none of them is filler. -/
theorem cut_kept {frame : Bytes} (hkept : kept (pieces frame (findStarts frame 0)) ≠ []) :
    ∃ ss, cut ((kept (pieces frame (findStarts frame 0))).flatMap fun p => p.1 ++ p.2) = ([], ss) ∧
      List.Forall₂ UpToZero ss ((kept (pieces frame (findStarts frame 0))).map Prod.snd) ∧
      ss.filter (fun s => !s.isEmpty) ≠ [] ∧ ∀ s ∈ ss, isFiller s = false := by
  have hpieces : ∀ p ∈ kept (pieces frame (findStarts frame 0)), IsCode p.1 ∧ Clean p.2 :=
    fun p hp => pieces_findStarts (List.mem_filter.1 hp).1
  obtain ⟨ss, hcut, hss, hlast⟩ := cut_flatMap_code hpieces
  have hmem : ∀ s ∈ (kept (pieces frame (findStarts frame 0))).map Prod.snd,
      s ≠ [] ∧ isFiller s = false := by
    intro s hs
    obtain ⟨p, hp, rfl⟩ := List.mem_map.1 hs
    simpa using (List.mem_filter.1 hp).2
  refine ⟨ss, hcut, hss, ?_, fun s hs => ?_⟩
  · -- the last piece keeps its bytes
    have hne : (kept (pieces frame (findStarts frame 0))).map Prod.snd ≠ [] := by simpa using hkept
    have hl := List.getLast?_eq_getLast_of_ne_nil hne
    rw [hl] at hlast
    refine List.ne_nil_of_mem (List.mem_filter.2 ⟨List.mem_of_getLast? hlast, ?_⟩)
    simpa using (hmem _ (List.getLast_mem hne)).1
  · obtain ⟨t, ht, hst⟩ : ∃ t ∈ (kept (pieces frame (findStarts frame 0))).map Prod.snd,
        UpToZero s t := by
      obtain ⟨i, hi, rfl⟩ := List.getElem_of_mem hs
      have hlen := hss.length_eq
      exact ⟨_, List.getElem_mem (by omega), List.Forall₂.get hss hi (by omega)⟩
    exact isFiller_upToZero hst (hmem t ht).2

/-- The pieces of an output without filler are all that the function finds in it. -/
theorem strip_of_segments {frame : Bytes} (h : ∀ s ∈ (cut frame).2, isFiller s = false) :
    stripH264FillerNalus frame = frame := by
  have hcut := (cut_drop frame 0 (Nat.zero_le _)).1
  rw [List.drop_zero] at hcut
  rw [stripH264FillerNalus_eq]
  refine if_pos (.inl ?_)
  rw [List.any_eq_false]
  intro p hp
  have := h p.2 (by rw [hcut, ← map_snd_pieces]; exact List.mem_map_of_mem hp)
  simp [this]

/-- A frame without filler units is left as it is. -/
theorem strip_of_splitAnnexB {frame : Bytes}
    (h : ∀ nalus, splitAnnexB frame = .ok nalus → ∀ n ∈ nalus, isFiller n = false) :
    stripH264FillerNalus frame = frame := by
  refine strip_of_segments fun s hs => ?_
  cases s with
  | nil => rfl
  | cons b s =>
    have hmem : b :: s ∈ (cut frame).2.filter fun s => !s.isEmpty := List.mem_filter.2 ⟨hs, rfl⟩
    rw [splitAnnexB_eq, if_neg (List.ne_nil_of_mem hs), if_neg (List.ne_nil_of_mem hmem)] at h
    exact h _ rfl _ hmem

theorem filter_segments (ps : List (Bytes × Bytes)) :
    ((ps.map Prod.snd).filter fun s => !s.isEmpty).filter (fun s => !isFiller s) =
      (kept ps).map Prod.snd := by
  induction ps with
  | nil => rfl
  | cons p ps ih => by_cases h₁ : p.2 = [] <;> by_cases h₂ : isFiller p.2 = true <;> simp_all [kept]

/-- The units of the stripped frame. -/
theorem splitAnnexB_strip {frame : Bytes} {nalus : List Bytes} (h : splitAnnexB frame = .ok nalus)
    (hexists : ∃ n ∈ nalus, isFiller n = false) :
    ∃ nalus', splitAnnexB (stripH264FillerNalus frame) = .ok nalus' ∧
      trimmed nalus' = trimmed (nalus.filter fun n => !isFiller n) := by
  by_cases hnone : ∀ s ∈ nalus, isFiller s = false
  · have hall : nalus.filter (fun n => !isFiller n) = nalus :=
      List.filter_eq_self.2 fun n hn => by simp [hnone n hn]
    exact ⟨nalus, by rw [strip_of_splitAnnexB fun m hm n hn => by
      rw [h] at hm
      exact hnone n (Except.ok.inj hm ▸ hn), h], by rw [hall]⟩
  · have hcut := (cut_drop frame 0 (Nat.zero_le _)).1
    rw [List.drop_zero, ← map_snd_pieces] at hcut
    have hnalus : nalus = ((pieces frame (findStarts frame 0)).map Prod.snd).filter
        fun s => !s.isEmpty := by
      rw [splitAnnexB_eq, hcut] at h
      dsimp only at h
      split at h
      case isTrue =>
        -- without a start code the frame is the only unit
        split at h
        case isTrue => cases h
        case isFalse =>
          obtain rfl : [frame] = nalus := Except.ok.inj h
          exact absurd (by simpa using hexists) hnone
      case isFalse =>
        split at h
        case isTrue => cases h
        case isFalse => exact (Except.ok.inj h).symm
    have hleft : (nalus.filter fun n => !isFiller n) =
        (kept (pieces frame (findStarts frame 0))).map Prod.snd := by
      rw [hnalus, filter_segments]
    have hkept : kept (pieces frame (findStarts frame 0)) ≠ [] := by
      obtain ⟨n, hn, hfiller⟩ := hexists
      have hmem : n ∈ nalus.filter fun n => !isFiller n :=
        List.mem_filter.2 ⟨hn, by rw [hfiller]; rfl⟩
      rw [hleft] at hmem
      exact fun hnil => by simp [hnil] at hmem
    have hany : ¬ ((pieces frame (findStarts frame 0)).any fun p => isFiller p.2) = false := by
      intro hany
      refine hnone fun s hs => ?_
      rw [hnalus] at hs
      obtain ⟨p, hp, rfl⟩ := List.mem_map.1 (List.mem_filter.1 hs).1
      simpa using List.any_eq_false.1 hany p hp
    have houtput : stripH264FillerNalus frame =
        (kept (pieces frame (findStarts frame 0))).flatMap fun p => p.1 ++ p.2 := by
      rw [stripH264FillerNalus_eq]
      exact if_neg (not_or.2 ⟨hany, hkept⟩)
    obtain ⟨ss, hss, hupTo, hne, -⟩ := cut_kept hkept
    have hsome : ss ≠ [] := fun hnil => by simp [hnil] at hne
    refine ⟨ss.filter fun s => !s.isEmpty, ?_, ?_⟩
    · rw [houtput, splitAnnexB_eq, hss]
      dsimp only
      rw [if_neg hsome, if_neg hne]
    · rw [trimmed_filter_nonempty, trimmed_forall₂ hupTo, hleft]

/-- **Only filler data is removed.** Units are compared without the zero bytes at their ends: the
units of the output are the units of the input that are not filler, an input without filler is left
as it is, and what was stripped once is not changed by stripping it again. -/
theorem stripH264FillerNalus_spec (frame : Bytes) :
    (∀ nalus, splitAnnexB frame = .ok nalus → (∃ n ∈ nalus, isFiller n = false) →
      ∃ nalus', splitAnnexB (stripH264FillerNalus frame) = .ok nalus' ∧
        trimmed nalus' = trimmed (nalus.filter fun n => !isFiller n)) ∧
    ((∀ nalus, splitAnnexB frame = .ok nalus → ∀ n ∈ nalus, isFiller n = false) →
      stripH264FillerNalus frame = frame) ∧
    stripH264FillerNalus (stripH264FillerNalus frame) = stripH264FillerNalus frame := by
  refine ⟨fun nalus h hexists => splitAnnexB_strip h hexists, strip_of_splitAnnexB, ?_⟩
  have houtput := stripH264FillerNalus_eq frame
  dsimp only at houtput
  split at houtput
  case isTrue => rw [houtput, houtput]
  case isFalse h =>
    obtain ⟨ss, hcut, -, -, hfiller⟩ := cut_kept fun hkept => h (.inr hkept)
    rw [houtput]
    exact strip_of_segments (by rw [hcut]; exact hfiller)

/-- Filler data between a unit that ends in a zero byte and a short start code. -/
theorem stripH264FillerNalus_spec_zero_end :
    ∃ nalus, splitAnnexB (stripH264FillerNalus
      [0, 0, 1, 0x65, 0, 0, 0, 0, 1, 0x0C, 0xFF, 0, 0, 1, 0x41]) = .ok nalus ∧
      trimmed nalus = [[0x65], [0x41]] := by
  have hcut : cut [0, 0, 1, 0x65, 0, 0, 0, 0, 1, 0x0C, 0xFF, 0, 0, 1, 0x41] =
      ([], [[0x65, 0], [0x0C, 0xFF], [0x41]]) := by simp [cut, codeLength]
  exact (stripH264FillerNalus_spec _).1 [[0x65, 0], [0x0C, 0xFF], [0x41]]
    (by rw [splitAnnexB_eq, hcut]; rfl) ⟨[0x65, 0], by decide, by decide⟩

end NativeVoice.Video
