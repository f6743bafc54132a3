import NativeVoice.Lib.StartCode
import NativeVoice.Rtp.Packet

/-!
# Annex B frames

`split_annex_b` of `src/src/video/h26x.rs`, which collects the positions of all start codes first
and then takes what lies between them. It returns the non-empty segments of the library's `cut`
(`splitAnnexB_eq`), and it splits NAL units that are put behind start codes again into themselves
(`splitAnnexB_annexB`).
-/

namespace NativeVoice.Video

open Lib.StartCode

def ANNEX_B_START_CODE : Bytes := [0, 0, 0, 1]

/-- The positions and lengths of the start codes from position `i` on. -/
def findStarts (frame : Bytes) (i : ℕ) : List (ℕ × ℕ) :=
  if i + 3 ≤ frame.length then
    if i + 4 ≤ frame.length ∧ (frame.drop i).take 4 = [0, 0, 0, 1] then
      (i, 4) :: findStarts frame (i + 4)
    else if (frame.drop i).take 3 = [0, 0, 1] then (i, 3) :: findStarts frame (i + 3)
    else findStarts frame (i + 1)
  else []
termination_by frame.length - i

/-- What lies behind each start code, up to the next one or the end of the frame. -/
def segments (frame : Bytes) : List (ℕ × ℕ) → List Bytes
  | [] => []
  | (start, prefixLen) :: starts =>
    let payloadStart := start + prefixLen
    let payloadEnd := match starts.head? with
      | some (next, _) => next
      | none => frame.length
    (frame.drop payloadStart).take (payloadEnd - payloadStart) :: segments frame starts

def splitAnnexB (frame : Bytes) : Fallible PacketError (List Bytes) :=
  if frame.isEmpty then .error (.err .emptyFrame)
  else
    let starts := findStarts frame 0
    if starts.isEmpty then .ok [frame]
    else
      let nalus := (segments frame starts).filter fun nalu => !nalu.isEmpty
      if nalus.isEmpty then .error (.err .emptyFrame) else .ok nalus

/-- NAL units as a frame in which each of them is behind a start code. -/
def annexB (nalus : List Bytes) : Bytes := nalus.flatMap (ANNEX_B_START_CODE ++ ·)

/-! ## The scan finds the cut -/

/-- Where the bytes before the first of `starts` end. -/
def firstStart (frame : Bytes) (starts : List (ℕ × ℕ)) : ℕ :=
  match starts.head? with
  | some (next, _) => next
  | none => frame.length

theorem segments_cons (frame : Bytes) (i n : ℕ) (starts : List (ℕ × ℕ)) :
    segments frame ((i, n) :: starts) =
      (frame.drop (i + n)).take (firstStart frame starts - (i + n)) :: segments frame starts := rfl

theorem findStarts_of_zero {frame : Bytes} {i : ℕ} (h : codeLength (frame.drop i) = 0) :
    findStarts frame i = if i + 3 ≤ frame.length then findStarts frame (i + 1) else [] := by
  obtain ⟨h₄, h₃⟩ := codeLength_eq_zero.1 h
  rw [findStarts, if_neg (fun hc : i + 4 ≤ frame.length ∧ _ => h₄ hc.2), if_neg h₃]

theorem findStarts_of_ne_zero {frame : Bytes} {i : ℕ} (h : codeLength (frame.drop i) ≠ 0) :
    findStarts frame i = (i, codeLength (frame.drop i)) ::
      findStarts frame (i + codeLength (frame.drop i)) := by
  have hle := codeLength_le (frame.drop i)
  rw [List.length_drop] at hle
  rw [findStarts]
  unfold codeLength at h hle ⊢
  split at h
  · rename_i h₄
    rw [if_pos h₄] at hle ⊢
    rw [if_pos (by omega), if_pos ⟨by omega, h₄⟩]
  · rename_i h₄
    split at h
    · rename_i h₃
      rw [if_neg h₄, if_pos h₃] at hle ⊢
      rw [if_pos (by omega), if_neg fun hc => h₄ hc.2, if_pos h₃]
    · exact absurd rfl h

/-- **The positions delimit the pieces of the cut.** -/
theorem cut_drop (frame : Bytes) (i : ℕ) (hi : i ≤ frame.length) :
    cut (frame.drop i) = ((frame.drop i).take (firstStart frame (findStarts frame i) - i),
      segments frame (findStarts frame i)) ∧ i ≤ firstStart frame (findStarts frame i) := by
  induction h : frame.length - i using Nat.strongRecOn generalizing i with
  | ind n ih =>
    by_cases hend : i = frame.length
    · subst hend
      have hs : findStarts frame frame.length = [] := by rw [findStarts, if_neg (by omega)]
      simp [hs, firstStart, segments]
    · have hlt : i < frame.length := by omega
      have hcons : frame.drop i = frame[i] :: frame.drop (i + 1) := List.drop_eq_getElem_cons hlt
      by_cases hz : codeLength (frame.drop i) = 0
      · -- no code begins here: the byte belongs to the piece that is being read
        obtain ⟨hcut, hle⟩ := ih (frame.length - (i + 1)) (by omega) (i + 1) (by omega) rfl
        have hsame : findStarts frame i = findStarts frame (i + 1) := by
          rw [findStarts_of_zero hz]
          split
          · rfl
          · rw [findStarts, if_neg (by omega)]
        rw [hsame]
        refine ⟨?_, by omega⟩
        rw [hcons] at hz ⊢
        rw [cut_cons_of_zero hz, hcut]
        have : firstStart frame (findStarts frame (i + 1)) - i =
          (firstStart frame (findStarts frame (i + 1)) - (i + 1)) + 1 := by omega
        rw [this, List.take_succ_cons]
      · have hle := codeLength_le (frame.drop i)
        rw [List.length_drop] at hle
        obtain ⟨hcut, _⟩ := ih (frame.length - (i + codeLength (frame.drop i))) (by omega)
          (i + codeLength (frame.drop i)) (by omega) rfl
        rw [findStarts_of_ne_zero hz, cut_of_ne_zero hz, List.drop_drop, hcut, segments_cons]
        simp [firstStart]

/-- **`split_annex_b` takes the non-empty segments of the cut**, or the whole frame if there is no
start code in it. -/
theorem splitAnnexB_eq (frame : Bytes) : splitAnnexB frame =
    if (cut frame).2 = [] then if frame = [] then .error (.err .emptyFrame) else .ok [frame]
    else if (cut frame).2.filter (fun s => !s.isEmpty) = [] then .error (.err .emptyFrame)
    else .ok ((cut frame).2.filter fun s => !s.isEmpty) := by
  have hcut := (cut_drop frame 0 (by omega)).1
  rw [List.drop_zero] at hcut
  have hempty : segments frame (findStarts frame 0) = [] ↔ findStarts frame 0 = [] := by
    cases findStarts frame 0 with
    | nil => simp [segments]
    | cons x starts => simp [segments]
  rw [hcut]
  unfold splitAnnexB
  dsimp only
  by_cases hf : frame = []
  · subst hf
    have : findStarts [] 0 = [] := by rw [findStarts, if_neg (by simp)]
    simp [this, segments]
  · simp [hf, hempty]

/-- The NAL units of a frame are not empty and without start codes. -/
theorem clean_of_splitAnnexB {frame : Bytes} {nalus : List Bytes}
    (h : splitAnnexB frame = .ok nalus) : nalus ≠ [] ∧ ∀ n ∈ nalus, n ≠ [] ∧ Clean n := by
  rw [splitAnnexB_eq] at h
  obtain ⟨h₁, h₂⟩ := clean_cut frame
  split at h
  · rename_i hs
    split at h
    · simp at h
    · rename_i hf
      obtain rfl : [frame] = nalus := by simpa using h
      refine ⟨by simp, ?_⟩
      simp only [List.mem_singleton, forall_eq]
      exact ⟨hf, clean_iff_snd_nil.2 hs⟩
  · split at h
    · simp at h
    · rename_i hne
      obtain rfl := Except.ok.inj h
      refine ⟨hne, fun n hn => ?_⟩
      obtain ⟨hn, hn'⟩ := List.mem_filter.1 hn
      exact ⟨by simpa using hn', h₂ n hn⟩

/-- **NAL units behind start codes are split into themselves.** -/
theorem splitAnnexB_annexB {nalus : List Bytes} (hne : nalus ≠ [])
    (h : ∀ n ∈ nalus, n ≠ [] ∧ Clean n) : splitAnnexB (annexB nalus) = .ok nalus := by
  have hcut : (cut (annexB nalus)).2 = nalus :=
    congrArg Prod.snd (cut_flatMap_startCode fun n hn => (h n hn).2)
  have hfilter : nalus.filter (fun s => !s.isEmpty) = nalus :=
    List.filter_eq_self.2 fun n hn => by simpa using (h n hn).1
  rw [splitAnnexB_eq, hcut, if_neg hne, hfilter, if_neg hne]

@[simp] theorem annexB_nil : annexB [] = [] := rfl

@[simp] theorem annexB_cons (n : Bytes) (nalus : List Bytes) :
    annexB (n :: nalus) = ANNEX_B_START_CODE ++ n ++ annexB nalus := rfl

theorem length_startCode_append (n : Bytes) : (ANNEX_B_START_CODE ++ n).length = 4 + n.length := by
  simp [ANNEX_B_START_CODE]
  omega

/-! ## Recognising the frame -/

theorem codes_annexB_append (nalus : List Bytes) (l : Bytes) :
    nalus.length + codes l ≤ codes (annexB nalus ++ l) := by
  induction nalus with
  | nil => simp
  | cons n nalus ih =>
    have := codes_add_le n (annexB nalus ++ l)
    rw [annexB_cons, List.append_assoc, List.append_assoc]
    have hcode := codes_startCode_append (n ++ (annexB nalus ++ l))
    simp only [startCode] at hcode
    rw [ANNEX_B_START_CODE, hcode, List.length_cons]
    omega

theorem length_annexB (nalus : List Bytes) :
    (annexB nalus).length = 4 * nalus.length + nalus.flatten.length := by
  induction nalus with
  | nil => rfl
  | cons n nalus ih =>
    rw [annexB_cons, List.length_append, length_startCode_append, ih, List.length_cons,
      List.flatten_cons, List.length_append]
    omega

/-- What is put together for one NAL unit is not the unit behind a start code: it has too few bytes
for the start codes in it, or it is another unit of the same length. -/
inductive Spoiled (nalu c : Bytes) : Prop
  | short (h : c.length < 4 * codes c + nalu.length)
  | altered (other : Bytes) (h : c = ANNEX_B_START_CODE ++ other)
      (hlen : other.length = nalu.length) (hne : other ≠ nalu)

theorem length_le_of_eq_or_spoiled {nalu c : Bytes}
    (h : c = ANNEX_B_START_CODE ++ nalu ∨ Spoiled nalu c) :
    c.length ≤ 4 * codes c + nalu.length := by
  have hcode (l : Bytes) : codes (ANNEX_B_START_CODE ++ l) = codes l + 1 := codes_startCode_append l
  rcases h with h | h | ⟨other, h, hlen⟩
  · rw [h, length_startCode_append, hcode]
    omega
  · omega
  · rw [h, length_startCode_append, hcode, hlen]
    omega

/-- **A frame is put together only from its own NAL units**: start codes that were added without
their units, or lost with them, show in its length. -/
theorem not_spoiled_of_flatMap_eq {nalus : List Bytes} (hclean : ∀ n ∈ nalus, Clean n)
    {c : Bytes → Bytes} (hc : ∀ n ∈ nalus, c n = ANNEX_B_START_CODE ++ n ∨ Spoiled n (c n))
    (h : nalus.flatMap c = annexB nalus) : ∀ n ∈ nalus, ¬ Spoiled n (c n) := by
  have hcodes : codes (annexB nalus) = nalus.length := by
    rw [← length_cut]
    exact congrArg (fun r => r.2.length) (cut_flatMap_startCode hclean)
  have hle : ∀ l : List Bytes, (∀ n ∈ l, (c n).length ≤ 4 * codes (c n) + n.length) →
      (l.flatMap c).length ≤ 4 * codes (l.flatMap c) + l.flatten.length ∧
        ((∃ n ∈ l, (c n).length < 4 * codes (c n) + n.length) →
          (l.flatMap c).length < 4 * codes (l.flatMap c) + l.flatten.length) := by
    intro l hl
    induction l with
    | nil => simp [codes]
    | cons n l ih =>
      obtain ⟨ih₁, ih₂⟩ := ih fun m hm => hl m (by simp [hm])
      have hn := hl n (by simp)
      have hadd := codes_add_le (c n) (l.flatMap c)
      simp only [List.flatMap_cons, List.length_append, List.flatten_cons, List.mem_cons,
        exists_eq_or_imp]
      refine ⟨by omega, fun hbad => ?_⟩
      rcases hbad with hbad | hbad
      · omega
      · have := ih₂ hbad
        omega
  have hnot_short : ∀ n ∈ nalus, ¬ (c n).length < 4 * codes (c n) + n.length := by
    intro n hn hbad
    have := (hle nalus fun m hm => length_le_of_eq_or_spoiled (hc m hm)).2 ⟨n, hn, hbad⟩
    rw [h, hcodes, length_annexB] at this
    omega
  have hlen : ∀ n ∈ nalus, (c n).length = 4 + n.length := by
    intro n hn
    rcases hc n hn with h | h | ⟨other, h, hlen⟩
    · rw [h, length_startCode_append]
    · exact absurd h (hnot_short n hn)
    · rw [h, length_startCode_append, hlen]
  -- all contributions have the lengths of the units behind start codes, so they are aligned
  have haligned : ∀ l : List Bytes, (∀ n ∈ l, (c n).length = 4 + n.length) →
      l.flatMap c = annexB l → ∀ n ∈ l, c n = ANNEX_B_START_CODE ++ n := by
    intro l hl h
    induction l with
    | nil => simp
    | cons n l ih =>
      rw [List.flatMap_cons, annexB_cons] at h
      obtain ⟨h₁, h₂⟩ := List.append_inj h (by rw [hl n (by simp), length_startCode_append])
      intro m hm
      rcases List.mem_cons.1 hm with rfl | hm
      · exact h₁
      · exact ih (fun k hk => hl k (by simp [hk])) h₂ m hm
  rintro n hn (hshort | ⟨other, hother, _, hne⟩)
  · exact hnot_short n hn hshort
  · rw [haligned nalus hlen h n hn] at hother
    exact hne (List.append_cancel_left hother).symm

end NativeVoice.Video
